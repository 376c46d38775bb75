import OnlineFeatures.Native.Print
import OnlineFeatures.Message.Reference

/-!
# Feature references

A feature is referred to by its name, or by its table and its name with a colon between. A reference
holds at most one colon, and what follows it is not empty; nothing before the colon means no table.
-/

namespace OnlineFeatures

/-- A feature name, with the table it is in where that is given. -/
structure FeatureReference where
  name : String
  table : Option String
  deriving DecidableEq, Repr

/-- Why a reference is refused. -/
inductive ReferenceFault where
  /-- It is no text but a value of another type, shown as `shown`. -/
  | notText (typeName shown : String)
  /-- It names no feature. -/
  | unnamed (ref : String)
  /-- It has a second colon. -/
  | divided (ref : String)
  /-- It stands where a list of references should. -/
  | notListed (ref : String)
  deriving DecidableEq, Repr

namespace ReferenceFault

def message : ReferenceFault → String
  | notText typeName _ => "Feature reference must be a string, got " ++ typeName
  | unnamed ref => "Feature reference '" ++ ref ++ "' has no feature name"
  | divided ref => "Feature reference '" ++ ref ++ "' must be 'feature_table:feature' or 'feature'"
  | notListed _ => "Feature references must be a list of strings, not a single string"

/-- The reference that the refusal names. -/
def reference : ReferenceFault → String
  | notText _ shown => shown
  | unnamed ref | divided ref | notListed ref => ref

end ReferenceFault

/-- What ends a read of references early. -/
inductive ReferencesFault where
  | reference (why : ReferenceFault)
  /-- A reference that is no text and cannot be shown either. -/
  | unshowable (why : Unshowable)
  /-- What should be a list cannot be iterated over. -/
  | notIterable
  deriving DecidableEq, Repr

namespace FeatureReference

/-- What stands between table and name. -/
def separator : Char := ':'

/-- The text before the first separator and, if there is one, the text after it. -/
def splitFirst (cs : List Char) : List Char × Option (List Char) :=
  match cs.dropWhile (· ≠ separator) with
  | [] => (cs, none)
  | _ :: rest => (cs.takeWhile (· ≠ separator), some rest)

/-- The table of a text, none for the empty one. -/
def tableOf (cs : List Char) : Option String :=
  if cs = [] then none else some (String.ofList cs)

def parse (ref : String) : Except ReferenceFault FeatureReference :=
  let (table, name) := match splitFirst ref.toList with
    | (before, some after) => (before, after)
    | (all, none) => ([], all)
  if name = [] then .error (.unnamed ref)
  else if separator ∈ name then .error (.divided ref)
  else .ok ⟨String.ofList name, tableOf table⟩

/-- Reads a reference of any type; only texts are references. -/
def ofNative (v : Native) : Except ReferencesFault FeatureReference :=
  match v with
  | .text ref => (parse ref).mapError .reference
  | v =>
    match v.shown with
    | .ok shown => .error (.reference (.notText v.typeName shown))
    | .error why => .error (.unshowable why)

/-- Reads references in order, up to the first that is refused. -/
def ofNatives (v : Native) : Except ReferencesFault (List FeatureReference) :=
  match v with
  | .text ref => .error (.reference (.notListed ref))
  | v =>
    match v.items? with
    | some items => items.mapM ofNative
    | none => .error .notIterable

/-- The table of a reference, if it is not empty. -/
def table? (r : FeatureReference) : Option String := r.table.filter (· ≠ "")

def text (r : FeatureReference) : String :=
  match r.table? with
  | some table => table ++ String.singleton separator ++ r.name
  | none => r.name

/-- The reference as it is sent. -/
def message (r : FeatureReference) : ReferenceMessage := ⟨r.table?.getD "", r.name, []⟩

end FeatureReference

end OnlineFeatures
