import OnlineFeatures.OrderedMap
import OnlineFeatures.Text.Blank

/-!
# Files of variables

A file gives one variable a line, `NAME=value`, perhaps behind the word `export`. A value stands
bare, up to a comment, or between quotes, where it may run over several lines and have escapes.
Lines that do not fit this form are passed over. In a value, a dollar sign before a name in braces
stands for the variable of that name.
-/

namespace OnlineFeatures

namespace EnvFile

/-! ## Characters -/

/-- The end of a line. -/
def isLineEnd (c : Char) : Bool := c = '\n' || c = '\r'

/-- A blank within a line. -/
def isInlineBlank (c : Char) : Bool := isBlank c && !isLineEnd c

/-- The text with every kind of line end turned to a line feed. -/
def unifyLineEnds : List Char → List Char
  | '\r' :: '\n' :: r => '\n' :: unifyLineEnds r
  | '\r' :: r => '\n' :: unifyLineEnds r
  | c :: r => c :: unifyLineEnds r
  | [] => []

/-! ## Values -/

/-- The character that a letter stands for behind a backslash. -/
def escaped? (double : Bool) (c : Char) : Option Char :=
  if c = '\\' ∨ c = '\'' then some c
  else if double then
    [('"', '"'), ('a', '\x07'), ('b', '\x08'), ('f', '\x0c'), ('n', '\n'), ('r', '\r'), ('t', '\t'),
      ('v', '\x0b')].lookup c
  else none

/-- The text with its escapes replaced. -/
def unescape (double : Bool) : List Char → List Char
  | '\\' :: c :: r =>
    match escaped? double c with
    | some d => d :: unescape double r
    | none => '\\' :: unescape double (c :: r)
  | c :: r => c :: unescape double r
  | [] => []

/-- The text up to the first quote without a backslash before it, and the text after that. -/
def untilQuote (quote : Char) : List Char → Option (List Char × List Char)
  | [] => none
  | '\\' :: c :: r =>
    if c = quote then (untilQuote quote r).map fun (inside, rest) => ('\\' :: c :: inside, rest)
    else (untilQuote quote (c :: r)).map fun (inside, rest) => ('\\' :: inside, rest)
  | c :: r =>
    if c = quote then some ([], r)
    else (untilQuote quote r).map fun (inside, rest) => (c :: inside, rest)

/-- The text up to the last quote, and the text after that. -/
def untilLastQuote (quote : Char) (cs : List Char) : Option (List Char × List Char) :=
  let after := (cs.reverse.takeWhile (· ≠ quote)).reverse
  if after.length < cs.length then some (cs.take (cs.length - after.length - 1), after) else none

/-- A quoted value, without its opening quote. When every quote has a backslash before it, the last
one closes the value all the same. -/
def quotedValue (quote : Char) (cs : List Char) : Option (List Char × List Char) :=
  let found := match untilQuote quote cs with
    | some r => some r
    | none => untilLastQuote quote cs
  found.map fun (inside, rest) => (unescape (quote = '"') inside, rest)

/-- The text before a comment, which is a number sign behind a blank. -/
def beforeComment : List Char → List Char
  | [] => []
  | c :: r =>
    if isBlank c && r.head? = some '#' then []
    else c :: beforeComment r

def bareValue (cs : List Char) : List Char × List Char :=
  (((beforeComment (cs.takeWhile (!isLineEnd ·))).reverse.dropWhile isBlank).reverse,
    cs.dropWhile (!isLineEnd ·))

/-- The value after an equals sign. -/
def value (cs : List Char) : Option (List Char × List Char) :=
  match cs with
  | '\'' :: r => quotedValue '\'' r
  | '"' :: r => quotedValue '"' r
  | _ => some (bareValue cs)

/-! ## Lines -/

/-- Passes over the word `export` and the blanks after it. -/
def dropExport (cs : List Char) : List Char :=
  let word := "export".toList
  let rest := cs.drop word.length
  if cs.take word.length = word ∧ (rest.head?.map isInlineBlank).getD false then
    rest.dropWhile isInlineBlank
  else cs

/-- A name, none in a line that is a comment. The outer option is empty where a name should stand
and none does. -/
def name (cs : List Char) : Option (Option (List Char) × List Char) :=
  match cs with
  | '#' :: _ => some (none, cs)
  | '\'' :: r =>
    let inside := r.takeWhile (· ≠ '\'')
    match r.drop inside.length with
    | _ :: rest => if inside = [] then none else some (some inside, rest)
    | [] => none
  | _ =>
    let isName (c : Char) : Bool := c ≠ '=' && c ≠ '#' && !isBlank c
    if cs.takeWhile isName = [] then none
    else some (some (cs.takeWhile isName), cs.dropWhile isName)

/-- What may follow a value: blanks, a comment, and the end of the line. -/
def lineEnd (cs : List Char) : Option (List Char) :=
  let blankless := cs.dropWhile isInlineBlank
  let rest := match blankless with
    | '#' :: r => r.dropWhile (!isLineEnd ·)
    | r => r
  match rest with
  | [] => some []
  | c :: r => if isLineEnd c then some r else none

/-- The rest after the current line. -/
def dropLine (cs : List Char) : List Char := (cs.dropWhile (!isLineEnd ·)).drop 1

/-- One binding, none where there is none on the line, and the rest. -/
def binding (cs : List Char) : Option (List Char × Option (List Char)) × List Char :=
  let cs := dropExport cs
  match name cs with
  | none => (none, dropLine cs)
  | some (key, cs) =>
    let cs := cs.dropWhile isInlineBlank
    let bound : Except (List Char) (Option (List Char) × List Char) := match cs with
      | '=' :: r =>
        let r := r.dropWhile isInlineBlank
        match value r with
        | some (v, rest) => .ok (some v, rest)
        | none => .error r
      | _ => .ok (none, cs)
    match bound with
    | .error cs => (none, dropLine cs)
    | .ok (v, cs) =>
      match lineEnd cs with
      | some rest => (key.map (·, v), rest)
      | none => (none, dropLine cs)

/-- The bindings of at most `fuel` lines. -/
def bindingsWith : Nat → List Char → List (List Char × Option (List Char))
  | 0, _ => []
  | fuel + 1, cs =>
    match cs.dropWhile isBlank with
    | [] => []
    | c :: r =>
      let (bound, rest) := binding (c :: r)
      bound.toList ++ bindingsWith fuel rest

/-- The bindings of a file. Every line has at least one character, its end. -/
def bindings (text : String) : List (List Char × Option (List Char)) :=
  let cs := unifyLineEnds text.toList
  bindingsWith (cs.length + 1) cs

/-! ## Variables in values -/

/-- A variable at the front, without its dollar sign: its name, what stands for it where it is not
set, and the rest. -/
def placeholder? : List Char → Option (List Char × List Char × List Char)
  | '\x7b' :: r =>
    let isName (c : Char) : Bool := c ≠ '\x7d' && c ≠ ':'
    match r.dropWhile isName with
    | '\x7d' :: rest => some (r.takeWhile isName, [], rest)
    | ':' :: '-' :: d =>
      match d.dropWhile (· ≠ '\x7d') with
      | _ :: rest => some (r.takeWhile isName, d.takeWhile (· ≠ '\x7d'), rest)
      | [] => none
    | _ => none
  | _ => none

/-- The value with its variables looked up; at most `fuel` characters are read. -/
def expandWith (lookUp : String → Option String) : Nat → List Char → List Char
  | 0, _ => []
  | _ + 1, [] => []
  | fuel + 1, c :: r =>
    match (if c = '$' then placeholder? r else none) with
    | some (key, fallback, rest) =>
      ((lookUp (String.ofList key)).map String.toList).getD fallback ++ expandWith lookUp fuel rest
    | none => c :: expandWith lookUp fuel r

/-- The variables of a file, those in values looked up among the ones before and then in the
environment. A name without a value is there, but has none. -/
def read (environment : List (String × String)) (text : String) : OrderedMap (Option String) :=
  (bindings text).foldl (fun (m : OrderedMap (Option String)) (key, v) =>
    let lookUp (s : String) : Option String :=
      match m.find? s with
      | some held => some (held.getD "")
      | none => environment.lookup s
    m.set (String.ofList key)
      (v.map fun cs => String.ofList (expandWith lookUp (cs.length + 1) cs))) .empty

end EnvFile

end OnlineFeatures
