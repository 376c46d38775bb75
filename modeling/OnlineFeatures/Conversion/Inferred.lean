import OnlineFeatures.Conversion.Explicit
import OnlineFeatures.Native.Print

/-!
# Inferred conversion

Where no converter is named, the type of the native value picks the member. Truth values are no
integers here, and integers no real numbers. Integers take 32 bits where they fit and 64 otherwise;
a list takes the member of the one kind that all its items share, and one wide integer makes it a
list of wide integers.
-/

namespace OnlineFeatures

/-! ## Refusals -/

/-- Why a native value has no place in the union. -/
inductive UnsupportedValue where
  /-- An integer beyond 64 bits. -/
  | wideInteger (i : Int)
  /-- A list without items, which have no kind. -/
  | emptyList
  /-- A list whose items share no kind, with the names of their types. -/
  | mixedList (typeNames : List String)
  /-- A value of a type that is never sent. -/
  | noMapping (typeName : String)
  deriving DecidableEq, Repr

namespace UnsupportedValue

def message : UnsupportedValue → String
  | wideInteger i => "Integer " ++ toString i ++ " does not fit in a 64-bit Value"
  | emptyList => "Cannot infer a Value list type from an empty sequence"
  | mixedList names =>
    "List values must share one supported element type, got " ++
      bracketed "[" "]" (names.map quoted)
  | noMapping typeName => "No Value mapping for type " ++ typeName

/-- The type that the refusal names. -/
def valueType : UnsupportedValue → String
  | wideInteger _ => "int"
  | emptyList | mixedList _ => "list"
  | noMapping typeName => typeName

end UnsupportedValue

/-- Why inference fails. -/
inductive InferenceFault where
  | unsupported (why : UnsupportedValue)
  /-- The integer that does not fit is too long to be named in the refusal. -/
  | longNumeral
  /-- The real number is beyond every float. -/
  | tooLarge
  deriving DecidableEq, Repr

/-! ## Inference -/

/-- Whether an integer fits 32 bits. -/
def fitsInt32 (i : Int) : Bool := -0x80000000 ≤ i && i ≤ 0x7fffffff

/-- Whether an integer fits 64 bits. -/
def fitsInt64 (i : Int) : Bool := -0x8000000000000000 ≤ i && i ≤ 0x7fffffffffffffff

/-- Refuses an integer beyond 64 bits. -/
def checkInt64 (i : Int) : Except InferenceFault Int :=
  if fitsInt64 i then .ok i
  else if numeralTooLong i then .error .longNumeral
  else .error (.unsupported (.wideInteger i))

def Content.ofInteger (i : Int) : Content :=
  if fitsInt32 i then .int32 (.ofInt i) else .int64 (.ofInt i)

def Content.ofIntegers (is : List Int) : Content :=
  if is.all fitsInt32 then .int32List (.ofList (is.map .ofInt))
  else .int64List (.ofList (is.map .ofInt))

namespace Native

/-! ## Scalars

Each kind of scalar has a reader, and no value has two kinds. -/

/-- The truth value that a value is. -/
def bool? : Native → Option Bool
  | bool b => some b
  | _ => Option.none

/-- The nearest float of a real number that is no integer. -/
def real? : Native → Option (Except InferenceFault Double)
  | float x => some (.ok x)
  | fraction num den =>
    some ((Double.ofFraction? (num < 0) num.natAbs den).elim (.error .tooLarge) .ok)
  | _ => Option.none

/-- The text that a value is. -/
def text? : Native → Option String
  | text s => some s
  | _ => Option.none

/-- The bytes that a value is. -/
def bytes? : Native → Option Bytes
  | octets .bytes content | octets .byteArray content => some content
  | _ => Option.none

/-- The member of a scalar, none for what is no scalar of any kind. -/
def inferScalar? (v : Native) : Option (Except InferenceFault Content) :=
  v.bool?.map (.ok <| .bool ·) <|>
    v.integer?.map (fun i => (checkInt64 i).map .ofInteger) <|>
    v.real?.map (·.map .double) <|>
    v.text?.map (.ok <| .text ·) <|>
    v.bytes?.map (.ok <| .bytes ·)

/-! ## Lists -/

/-- The list member of items of one kind, none for items that share none. -/
def inferItems? (items : List Native) : Option (Except InferenceFault Content) :=
  (items.mapM bool?).map (fun bs => .ok (.boolList (.ofList bs))) <|>
    (items.mapM integer?).map (fun is => (is.mapM checkInt64).map .ofIntegers) <|>
    (items.mapM real?).map (fun xs => (xs.mapM id).map (.doubleList <| .ofList ·)) <|>
    (items.mapM text?).map (fun ss => .ok (.textList (.ofList ss))) <|>
    (items.mapM bytes?).map (fun bs => .ok (.bytesList (.ofList bs)))

/-- The names of the items' types, each once, in order. -/
def typeNames (items : List Native) : List String :=
  (items.map typeName).eraseDups.mergeSort (· ≤ ·)

/-- The list member of a list. -/
def inferList (items : List Native) : Except InferenceFault Content :=
  if items.isEmpty then .error (.unsupported .emptyList)
  else (inferItems? items).getD (.error (.unsupported (.mixedList (typeNames items))))

/-! ## All values -/

/-- The wire value of a native value. A wire value stands for itself. -/
def infer : Native → Except InferenceFault Value
  | value v => .ok v
  | none => .ok (.ofContent (.null 0))
  | collection .list items | collection .tuple items => (inferList items).map .ofContent
  | v => (v.inferScalar?.getD (.error (.unsupported (.noMapping v.typeName)))).map .ofContent

end Native

end OnlineFeatures
