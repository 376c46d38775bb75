import OnlineFeatures.Metrics.Registry
import OnlineFeatures.Log
import OnlineFeatures.Settings.Load

/-!
# Metrics of calls

Every call is counted by its method and how it ended, and its duration goes into a histogram of its
method. Recording never changes what a call answers; where a collector is out of order, a log entry
is all that comes of it.
-/

namespace OnlineFeatures

/-! ## The two collectors -/

/-- The name of the call counter's samples. -/
def requestsName : String := "feast_client_requests_total"

/-- The name of the latency histogram. -/
def latencyName : String := "feast_client_request_latency_seconds"

/-- The bounds of the latency histogram. -/
def latencyBounds : List Double :=
  closeBounds ([1, 5, 10, 25, 50, 100, 250, 500, 1000, 2500, 5000].map thousandths)

def requestsCollector : Collector :=
  ⟨.counter, dropEnding "_total" requestsName, ["method", "status"], []⟩

def latencyCollector : Collector := ⟨.histogram, latencyName, ["method"], latencyBounds⟩

/-- The registry with the two collectors of calls. The default collectors of the metrics library
(`python_info`, `python_gc_*` and `process_*`), which it registers on its own, are left out. -/
def Registry.initial : Registry := ⟨[requestsCollector, latencyCollector]⟩

/-! ## Samples -/

/-- A histogram: how many durations fell into each bucket first, and their sum. -/
structure Histogram where
  counts : List Nat
  sum : Double
  deriving DecidableEq, Repr

namespace Histogram

/-- The histogram of no durations. -/
def empty : Histogram := ⟨latencyBounds.map fun _ => 0, .zero⟩

/-- Counts a duration in the first bucket that holds it; one that is no number falls into none. -/
def countIn (x : Double) : List Double → List Nat → List Nat
  | b :: bs, n :: ns => if x.le b then (n + 1) :: ns else n :: countIn x bs ns
  | _, ns => ns

/-- Takes up a duration. -/
def observe (h : Histogram) (x : Double) : Histogram :=
  ⟨countIn x latencyBounds h.counts, h.sum.add x⟩

/-- The number of durations up to each bound. -/
def cumulative : Nat → List Nat → List Nat
  | _, [] => []
  | total, n :: ns => (total + n) :: cumulative (total + n) ns

/-- The number of durations in all buckets. -/
def total (h : Histogram) : Nat := h.counts.foldl (· + ·) 0

end Histogram

/-- How a call ended, as it is counted. -/
inductive CallStatus where
  | success
  | error
  deriving DecidableEq, Repr

/-- The label of an ending. -/
def CallStatus.label : CallStatus → String
  | success => "success"
  | error => "error"

/-- All samples taken so far, each group in the order in which its labels first came. -/
structure RpcMetrics where
  requests : List ((String × CallStatus) × Nat)
  latency : List (String × Histogram)
  deriving DecidableEq, Repr

/-- Changes the value of a key, which starts from `initial` at the end if it is not there. -/
def alterEntry {κ α : Type} [DecidableEq κ] (key : κ) (initial : α) (f : α → α) :
    List (κ × α) → List (κ × α)
  | [] => [(key, f initial)]
  | (k, a) :: rest => if k = key then (k, f a) :: rest else (k, a) :: alterEntry key initial f rest

/-- Which collectors are out of order. -/
structure BrokenCollectors where
  counter : Bool
  histogram : Bool
  deriving DecidableEq, Repr

namespace RpcMetrics

/-- No samples. -/
def empty : RpcMetrics := ⟨[], []⟩

/-- Counts a call. -/
def count (m : RpcMetrics) (method : String) (status : CallStatus) : RpcMetrics :=
  { m with requests := alterEntry (method, status) 0 (· + 1) m.requests }

/-- Takes up the duration of a call. -/
def observe (m : RpcMetrics) (method : String) (duration : Double) : RpcMetrics :=
  { m with latency := alterEntry method .empty (·.observe duration) m.latency }

/-- Counts a call and takes up its duration. -/
def record (m : RpcMetrics) (method : String) (status : CallStatus) (duration : Double) :
    RpcMetrics :=
  (m.count method status).observe method duration

/-- The log entry about a collector that is out of order. -/
def brokenEntry (action : String) : LogEntry :=
  ⟨.debug, .metrics, "Failed to " ++ action ++ ": 'NoneType' object has no attribute 'labels'"⟩

/-- Records a call as far as the collectors are in order. -/
def recordWith (broken : BrokenCollectors) (m : RpcMetrics) (method : String) (status : CallStatus)
    (duration : Double) : RpcMetrics × List LogEntry :=
  let counted := if broken.counter then m else m.count method status
  (if broken.histogram then counted else counted.observe method duration,
    (if broken.counter then [brokenEntry "increment counter"] else []) ++
      (if broken.histogram then [brokenEntry "observe histogram"] else []))

/-- How often a method's calls ended in a way. -/
def countOf (m : RpcMetrics) (method : String) (status : CallStatus) : Nat :=
  (m.requests.lookup (method, status)).getD 0

/-- How many durations of a method's calls are in a bucket. -/
def latencyCount (m : RpcMetrics) (method : String) : Nat :=
  ((m.latency.lookup method).map (·.total)).getD 0

end RpcMetrics

/-! ## Whether calls are recorded -/

/-- Whether calls are recorded, by the variable that switches it; they are where it is not set. -/
def metricsEnabled (switch : Option String) : Bool :=
  match switch with
  | none => true
  | some text => lowerName text = "true"

/-- The variable that switches recording. -/
def metricsVariable : String := "PROMETHEUS_METRICS"

/-- Whether calls are recorded in an environment. -/
def Environment.metricsEnabled (e : Environment) : Bool :=
  OnlineFeatures.metricsEnabled (e.bindings.find? metricsVariable)

/-- One timed call: its method, the clock before and after it, and how it ended. -/
structure TimedCall where
  method : String
  start : Double
  stop : Double
  status : CallStatus
  deriving DecidableEq, Repr

/-- Records a timed call, if recording is switched on. -/
def RpcMetrics.track (m : RpcMetrics) (enabled : Bool) (broken : BrokenCollectors) (c : TimedCall) :
    RpcMetrics × List LogEntry :=
  if enabled then m.recordWith broken c.method c.status (c.stop.sub c.start) else (m, [])

end OnlineFeatures
