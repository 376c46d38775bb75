import OnlineFeatures.Native.Basic
import OnlineFeatures.Row.Print
import OnlineFeatures.Message.TextForm

/-!
# The text of native values

Error texts show the value they are about. Every value has such a text except an integer with more
digits than are ever written, and a row whose point in time lies outside the calendar.
-/

namespace OnlineFeatures

/-- The most digits an integer is written or read with. -/
def numeralLimit : Nat := 4300

/-- Whether an integer is too long to be written. -/
def numeralTooLong (i : Int) : Bool := Nat.pow 10 numeralLimit ≤ i.natAbs

/-- Why a value has no text. -/
inductive Unshowable where
  | longNumeral
  | timestamp (why : TimestampInvalid)
  deriving DecidableEq, Repr

def shownInt (i : Int) : Except Unshowable String :=
  if numeralTooLong i then .error .longNumeral else .ok (toString i)

namespace FieldStatus

/-- A status as it is shown. -/
def shown (s : FieldStatus) : String :=
  "<FieldStatus." ++ s.name ++ ": " ++ toString s.number ++ ">"

end FieldStatus

namespace Native

/-! ## Scalars -/

/-- The text of a complex number; a real part of positive zero is left out. -/
def shownComplex (re im : Double) : String :=
  let imaginary := im.textIn .bare ++ "j"
  if re = .zero then imaginary
  else
    let sign := if (im.textIn .bare).startsWith "-" then "" else "+"
    "(" ++ re.textIn .bare ++ sign ++ imaginary ++ ")"

def shownDate (d : Date) : String :=
  bracketed "datetime.date(" ")" [toString d.year, toString d.month, toString d.day]

/-- The text of a time difference of whole seconds. -/
def shownDelta (seconds : Int) : String :=
  let days := seconds / secondsPerDay
  let rest := seconds % secondsPerDay
  let parts := (if days = 0 then [] else ["days=" ++ toString days]) ++
    (if rest = 0 then [] else ["seconds=" ++ toString rest])
  bracketed "datetime.timedelta(" ")" (if parts.isEmpty then ["0"] else parts)

def shownZone (offset : Int) : String :=
  if offset = 0 then "datetime.timezone.utc"
  else "datetime.timezone(" ++ shownDelta offset ++ ")"

/-- The text of a time; seconds and microseconds are left out from the end while they are zero. -/
def shownDateTime (t : DateTime) : String :=
  let fixed := [t.date.year, t.date.month, t.date.day, t.hour, t.minute]
  let tail :=
    if t.microsecond ≠ 0 then [t.second, t.microsecond]
    else if t.second ≠ 0 then [t.second]
    else []
  let zone := match t.offset with
    | some offset => ["tzinfo=" ++ shownZone offset]
    | Option.none => []
  bracketed "datetime.datetime(" ")" ((fixed ++ tail).map toString ++ zone)

/-- The text of a byte string of a type. -/
def shownOctets (content : Bytes) : OctetType → String
  | .bytes => quotedBytes content
  | .byteArray => "bytearray(" ++ quotedBytes content ++ ")"
  | .memoryView => "<memory>"

/-- The text of a collection, from those of its items. -/
def shownCollection (items : List String) : CollectionType → String
  | .list => bracketed "[" "]" items
  | .tuple =>
    match items with
    | [item] => "(" ++ item ++ ",)"
    | _ => bracketed "(" ")" items
  | .set => if items.isEmpty then "set()" else bracketed "\x7b" "\x7d" items
  | .frozenSet => if items.isEmpty then "frozenset()" else bracketed "frozenset(\x7b" "\x7d)" items
  | .generator => "<generator object>"

/-! ## All values -/

mutual

/-- The text that a value is shown with. -/
def shown : Native → Except Unshowable String
  | .none => .ok "None"
  | .bool b => .ok (shownBool b)
  | .int i => shownInt i
  | .status s => .ok s.shown
  | .float x => .ok x.text
  | .fraction num den => do
    .ok ("Fraction(" ++ (← shownInt num) ++ ", " ++ (← shownInt den) ++ ")")
  | .decimal d => .ok ("Decimal('" ++ d.text ++ "')")
  | .complex re im => .ok (shownComplex re im)
  | .text s => .ok (quoted s)
  | .octets type content => .ok (shownOctets content type)
  | .collection type items => (shownEach items).map fun texts => shownCollection texts type
  | .dict entries => (shownEntries entries).map (bracketed "\x7b" "\x7d")
  | .range stop => (shownInt stop).map fun s => "range(0, " ++ s ++ ")"
  | .date d => .ok (shownDate d)
  | .dateTime t => .ok (shownDateTime t)
  | .timestamp t => .ok t.textForm
  | .value v => .ok v.textForm
  | .row r => r.shown.mapError .timestamp
  | .object => .ok "<object object>"

/-- The texts of a list of values. -/
def shownEach : List Native → Except Unshowable (List String)
  | [] => .ok []
  | v :: vs => do .ok ((← v.shown) :: (← shownEach vs))

/-- The texts of the entries of a dictionary. -/
def shownEntries : List (Native × Native) → Except Unshowable (List String)
  | [] => .ok []
  | (k, v) :: es => do .ok (((← k.shown) ++ ": " ++ (← v.shown)) :: (← shownEntries es))

end

/-! ## Inside a sentence -/

/-- An offset east of UTC: hours, minutes, and seconds where there are any. -/
def plainOffset (offset : Int) : String :=
  let n := offset.natAbs
  let clock := paddedDecimal 2 (n / 3600) ++ ":" ++ paddedDecimal 2 (n / 60 % 60)
  (if offset < 0 then "-" else "+") ++ clock ++
    (if n % 60 = 0 then "" else ":" ++ paddedDecimal 2 (n % 60))

/-- A time with a blank between date and time of day. -/
def plainDateTime (t : DateTime) : String :=
  t.date.isoText ++ " " ++ t.clockText ++
    (if t.microsecond = 0 then "" else "." ++ paddedDecimal 6 t.microsecond) ++
    ((t.offset.map plainOffset).getD "")

/-- The text of a value inside a sentence: a text is its own, quotients, dates and times are written
as they are outside programs, and others as they are shown. -/
def plain : Native → Except Unshowable String
  | .text s => .ok s
  | .decimal d => .ok d.text
  | .fraction num den => do
    if den = 1 then shownInt num else .ok ((← shownInt num) ++ "/" ++ (← shownInt den))
  | .status s => .ok (toString s.number)
  | .date d => .ok d.isoText
  | .dateTime t => .ok (plainDateTime t)
  | v => v.shown

end Native

end OnlineFeatures
