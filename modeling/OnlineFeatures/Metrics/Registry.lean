import OnlineFeatures.Number.FloatText

/-!
# The registry of collectors

A collector claims a family of names, and no two registered collectors claim the same one. Asking
for a collector creates it where its names are free and it is well formed; otherwise the registered
collector that claims exactly the name asked for is answered, if there is one.
-/

namespace OnlineFeatures

inductive CollectorType where
  | counter
  | histogram
  deriving DecidableEq, Repr

def CollectorType.name : CollectorType → String
  | counter => "counter"
  | histogram => "histogram"

/-- A collector. The bounds are those of a histogram's buckets. -/
structure Collector where
  type : CollectorType
  name : String
  labels : List String
  bounds : List Double
  deriving DecidableEq, Repr

/-- The names that a collector claims. -/
def Collector.claims (c : Collector) : List String :=
  match c.type with
  | .counter => [c.name, c.name ++ "_total", c.name ++ "_created"]
  | .histogram =>
    [c.name, c.name ++ "_bucket", c.name ++ "_sum", c.name ++ "_count", c.name ++ "_created"]

/-! ## Bounds -/

/-- The float of a number of thousandths. -/
def thousandths (n : Nat) : Double := .ofFraction false n 1000

/-- The bounds of a histogram for which none are asked. -/
def defaultBounds : List Double :=
  [5, 10, 25, 50, 75, 100, 250, 500, 750, 1000, 2500, 5000, 7500, 10000].map thousandths

/-- Whether no bound is followed by a lesser one. -/
def boundsOrdered : List Double → Bool
  | a :: b :: rest => !b.lt a && boundsOrdered (b :: rest)
  | _ => true

/-- The bounds with infinity at the end. -/
def closeBounds (bounds : List Double) : List Double :=
  if bounds.getLast? = some (.infinity false) then bounds else bounds ++ [.infinity false]

/-- The digits before the point of a float's text, and those after it. -/
def splitPoint (cs : List Char) : List Char × List Char :=
  (cs.takeWhile (· ≠ '.'), (cs.dropWhile (· ≠ '.')).drop 1)

/-- The text without zeros at its end. -/
def dropTrailingZeros (cs : List Char) : List Char := (cs.reverse.dropWhile (· = '0')).reverse

/-- The text of a bound: that of a float, except that more than six digits before the point are
written as one digit with an exponent behind a zero. -/
def boundText (x : Double) : String :=
  if x = .infinity false then "+Inf"
  else if x = .infinity true then "-Inf"
  else if x.isNaN then "NaN"
  else
    let (whole, fraction) := splitPoint (x.chars .plain)
    if Double.zero.lt x && (x.chars .plain).contains '.' && decide (6 < whole.length) then
      match whole with
      | first :: more =>
        let digits := dropTrailingZeros (more ++ fraction)
        String.ofList (first :: (if digits.isEmpty then [] else '.' :: digits)) ++ "e+0" ++
          toString (whole.length - 1)
      | [] => x.text
    else x.text

/-! ## Requests -/

/-- A request for a collector. -/
structure CollectorRequest where
  type : CollectorType
  name : String
  labels : List String
  /-- The bounds asked for; none or an empty list leave them to the default. -/
  bounds : Option (List Double)
  deriving DecidableEq, Repr

/-- The name without one ending, where it has it. -/
def dropEnding (ending name : String) : String :=
  let cs := name.toList
  let tail := ending.toList
  if tail.length ≤ cs.length ∧ cs.drop (cs.length - tail.length) = tail then
    String.ofList (cs.take (cs.length - tail.length))
  else name

/-- The family name of a request: a counter's name is taken without the ending of its sample. -/
def CollectorRequest.baseName (r : CollectorRequest) : String :=
  match r.type with
  | .counter => dropEnding "_total" r.name
  | .histogram => r.name

/-- Whether a label may be used with a type of collector. -/
def labelAllowed (type : CollectorType) (label : String) : Bool :=
  !(label.toList.take 2 == ['_', '_']) && !(type == .histogram && label == "le")

/-- The collector of a request, if it is well formed. -/
def CollectorRequest.collector? (r : CollectorRequest) : Option Collector :=
  if r.baseName = "" ∨ !r.labels.all (labelAllowed r.type) then none
  else
    match r.type with
    | .counter => some ⟨.counter, r.baseName, r.labels, []⟩
    | .histogram =>
      let bounds := match r.bounds with
        | some (b :: bs) => b :: bs
        | _ => defaultBounds
      if boundsOrdered bounds ∧ 2 ≤ (closeBounds bounds).length then
        some ⟨.histogram, r.baseName, r.labels, closeBounds bounds⟩
      else none

/-! ## The registry -/

/-- The registered collectors, in the order of registration; their positions are their
identities. -/
structure Registry where
  collectors : List Collector
  deriving DecidableEq, Repr

namespace Registry

def empty : Registry := ⟨[]⟩

/-- The identity of the collector that claims a name. -/
def owner? (g : Registry) (name : String) : Option Nat :=
  g.collectors.findIdx? fun c => name ∈ c.claims

/-- Whether none of a collector's names is claimed. -/
def isFree (g : Registry) (c : Collector) : Bool := c.claims.all fun name => (g.owner? name).isNone

/-- Registers a collector, if its names are free. -/
def register? (g : Registry) (c : Collector) : Option Registry :=
  if g.isFree c then some ⟨g.collectors ++ [c]⟩ else none

/-- The collector for a request: a new one if it can be registered, else the owner of the name. -/
def getOrCreate (g : Registry) (r : CollectorRequest) : Registry × Option Nat :=
  match r.collector?.bind g.register? with
  | some registered => (registered, some g.collectors.length)
  | none => (g, g.owner? r.name)

end Registry

end OnlineFeatures
