import OnlineFeatures.Cli.Numerals
import OnlineFeatures.Failure

/-!
# Entity arguments

An entity is given as `key=value[,key=value...]`. A value that can be read as a number is taken for
it only if the number prints as the same text, so that no value is altered by guessing its type.
-/

namespace OnlineFeatures

namespace Entities

/-- The integer that a text is read as, if it prints as that very text. -/
def scalarInt? (s : String) : Option Int :=
  (Lenient.integer? s).filter fun i => (shownInt i).toOption = some s

/-- The float that a text is read as, if it is finite and prints as that very text. -/
def scalarFloat? (s : String) : Option Double :=
  (Lenient.float? s).filter fun x => x.isFinite && x.text = s

/-- The value of a text: an integer, a float, or the text itself. -/
def scalar (s : String) : Native :=
  match scalarInt? s with
  | some i => .int i
  | none =>
    match scalarFloat? s with
    | some x => .float x
    | none => .text s

/-- The pieces of a text between separators. -/
def splitAt (separator : Char) : List Char → List (List Char)
  | [] => [[]]
  | c :: cs =>
    if c = separator then [] :: splitAt separator cs
    else
      match splitAt separator cs with
      | piece :: pieces => (c :: piece) :: pieces
      | [] => [[c]]

/-- The key and the value of a piece, as they stand around the first equals sign. -/
def pair? (piece : List Char) : Option (List Char × List Char) :=
  match piece.dropWhile (· ≠ '=') with
  | _ :: value =>
    let key := piece.takeWhile (· ≠ '=')
    if key = [] then none else some (key, value)
  | [] => none

/-- Sets the field of one piece. -/
def setPiece (r : Row) (piece : List Char) : Except Failure Row :=
  match pair? piece with
  | none => .error (.entity (String.ofList piece))
  | some (key, value) =>
    let trimmed (cs : List Char) : String := String.ofList (trimChars isBlank cs)
    match r.set (trimmed key) (scalar (trimmed value)) .none with
    | (r, .ok ()) => .ok r
    | (_, .error why) => .error why.failure

/-- The row of one argument, made at a time of the clock. -/
def row (now : Double) (entity : String) : Except Failure Row :=
  match Row.create now with
  | .error why => .error (.moment why)
  | .ok r => (splitAt ',' entity.toList).foldlM setPiece r

/-- The rows of all arguments, up to the first that is refused. -/
def rows (now : Double) (entities : List String) : Except Failure (List Row) :=
  entities.mapM (row now)

end Entities

end OnlineFeatures
