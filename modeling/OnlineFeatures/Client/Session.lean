import OnlineFeatures.Client.Basic
import OnlineFeatures.Row.Shared

/-!
# Sessions

A client in use: calls one after another, the metrics that gather, and the channel that is closed
sooner or later.
-/

namespace OnlineFeatures

/-! ## Rows from steps -/

namespace SharedRow

/-- The failure that a step ends with. -/
def StepResult.failure? : StepResult → Option Failure
  | rowFault why => some why.failure
  | momentFault why => some (.moment why)
  | _ => none

/-- The row that steps lead to, up to the first that fails. -/
def runStrict (w : SharedRow) : List Step → Except Failure SharedRow
  | [] => .ok w
  | s :: steps =>
    let (w, r) := w.step s
    match r.failure? with
    | some why => .error why
    | none => w.runStrict steps

end SharedRow

/-- The row that steps lead to from a new one. -/
def Row.build (now : Double) (steps : List SharedRow.Step) : Except Failure Row :=
  match Row.create now with
  | .ok r => ((SharedRow.ofTimestamp r.timestamp).runStrict steps).map (·.current)
  | .error why => .error (.moment why)

/-! ## Calls -/

/-- What is done with a client. -/
inductive ClientCall where
  | info (reply : Reply)
  | features (refs : Native) (rows : List (List SharedRow.Step)) (project : Option String)
    (reply : Reply)
  | close
  | setProject (project : String)

/-- What a client answers. -/
inductive ClientAnswer where
  | info (m : InfoResponse)
  | rows (rs : List Row)
  | closed
  | projectSet
  deriving DecidableEq, Repr

/-- A client and the metrics gathered so far. -/
structure Session where
  client : Client
  metrics : RpcMetrics
  deriving DecidableEq, Repr

namespace CallRun

/-- The run with its result renamed. -/
def map {α β : Type} (f : α → β) (r : CallRun α) : CallRun β :=
  ⟨r.result.map f, r.sent, r.logs, r.observed⟩

/-- A run in which nothing was sent. -/
def quiet {α : Type} (a : α) : CallRun α := ⟨.ok a, [], [], []⟩

end CallRun

namespace Session

/-- The session of a new client. -/
def start (c : Client) : Session := ⟨c, .empty⟩

/-- What a call comes to. -/
def run (s : Session) (now : Double) : ClientCall → CallRun ClientAnswer
  | .info reply => (s.client.info reply).map .info
  | .features refs rows project reply =>
    match rows.mapM (Row.build now) with
    | .ok rows => (s.client.features now refs rows project reply).map .rows
    | .error why => .failed why
  | .close => .quiet .closed
  | .setProject _ => .quiet .projectSet

/-- The client after a call. -/
def clientAfter (c : Client) : ClientCall → Client
  | .close => c.close
  | .setProject project => { c with project }
  | _ => c

/-- Does a call in an environment. -/
def step (s : Session) (e : Environment) (call : ClientCall) : Session × CallRun ClientAnswer :=
  let r := s.run e.now call
  (⟨clientAfter s.client call, s.metrics.recordAll e.metricsEnabled e.now r.observed⟩, r)

/-- Does a call and closes the client however it ends. -/
def stepWithin (s : Session) (e : Environment) (call : ClientCall) :
    Session × CallRun ClientAnswer :=
  let (s, r) := s.step e call
  ({ s with client := s.client.close }, r)

end Session

end OnlineFeatures
