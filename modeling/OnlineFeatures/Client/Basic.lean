import OnlineFeatures.Rpc.Channel
import OnlineFeatures.Metrics.Rpc
import OnlineFeatures.Message.Features
import OnlineFeatures.Message.Info

/-!
# The client

A client holds one channel and perhaps credentials, and asks for features in terms of rows. A call
is described whole by what it depends on: the client, its arguments, the clock and the reply it
gets. Everything it does stands in its run: what it sent, what it logged, what is counted of it, and
its result.
-/

namespace OnlineFeatures

structure Client where
  channel : Channel
  credentials : Option Credentials
  /-- The project named in requests that name none of their own. -/
  project : String
  deriving DecidableEq, Repr

/-- A request as it leaves the client. -/
structure SentCall where
  method : RpcMethod
  metadata : Metadata
  request : Bytes
  deriving DecidableEq, Repr

/-- What is counted of a call. -/
structure Observation where
  method : RpcMethod
  status : CallStatus
  deriving DecidableEq, Repr

/-- What came of a call. -/
structure CallRun (α : Type) where
  result : Except Failure α
  sent : List SentCall
  logs : List LogEntry
  observed : List Observation

namespace CallRun

variable {α β : Type}

/-- A call that fails before anything is done. -/
def failed (why : Failure) : CallRun α := ⟨.error why, [], [], []⟩

/-- The run with entries logged before it. -/
def after (logs : List LogEntry) (r : CallRun α) : CallRun α := { r with logs := logs ++ r.logs }

/-- The run with its result worked on. -/
def andThen (r : CallRun α) (f : α → Except Failure β) : CallRun β :=
  ⟨r.result.bind f, r.sent, r.logs, r.observed⟩

end CallRun

namespace Client

/-! ## Making a client -/

/-- A client on an open channel. -/
def onChannel (channel : Channel) (credentials : Option Credentials) (project : String) : Client :=
  ⟨channel, credentials, project⟩

/-- Whether calls carry credentials. -/
def isAuthenticated (c : Client) : Bool := c.credentials.isSome

/-- The entry that tells of a new client. -/
def createdEntry (host : String) (port : Int) (o : SecurityOptions) : LogEntry :=
  ⟨.info, .client, "Feast client created for " ++ Channel.targetText host port ++ " (tls=" ++
    shownBool o.tlsEnabled ++ ", authenticated=" ++ shownBool o.credentials.isSome ++ ")"⟩

/-- A client on a new channel, with what is logged on the way. -/
def create (e : Environment) (host : String) (port : Int) (o : SecurityOptions) :
    Except Failure (Client × List LogEntry) :=
  (Channel.build e host port o).map fun channel =>
    (onChannel channel o.credentials "", [channel.openedEntry, createdEntry host port o])

/-- The security that settings ask for. -/
def securityOf (s : Settings) : SecurityOptions :=
  ⟨s.tlsEnabled, s.certificatePath, (s.authToken.filter (· ≠ "")).map fun token => ⟨token⟩⟩

/-- The client that settings describe. -/
def ofSettings (e : Environment) (s : Settings) : Except Failure (Client × List LogEntry) :=
  (create e s.host s.port (securityOf s)).map fun (c, logs) =>
    ({ c with project := s.project }, logs)

def close (c : Client) : Client := { c with channel := c.channel.close }

/-! ## Calls -/

/-- The metadata that a call goes out with. -/
def metadata (c : Client) : Metadata := (c.credentials.map (·.metadata)).getD []

/-- The transport's report of an answer that is no message. -/
def unreadableAnswer : RpcFault :=
  .status (some .internal) (some "Exception deserializing response!")

/-- The entry that tells of a failed call. -/
def failedEntry (f : RemoteFailure) : LogEntry :=
  ⟨.warning, .client, "Feast serving call failed: " ++ f.message⟩

/-- How a failure is counted: signals that are no errors count as successes. -/
def statusOf (why : Failure) : CallStatus := if why.isOrdinary then .error else .success

/-- What a reply comes to: an answer, or the fault that the transport reports or raises. -/
def readReply {α : Type} (decode? : Bytes → Option α) : Reply → Except (RpcFault ⊕ Raised) α
  | .response content => (decode? content).elim (.error (.inl unreadableAnswer)) .ok
  | .fault why => .error (.inl why)
  | .raised what => .error (.inr what)

/-- One remote call. -/
def call {α : Type} (c : Client) (method : RpcMethod) (request : Bytes) (decode? : Bytes → Option α)
    (reply : Reply) : CallRun α :=
  if c.channel.isOpen then
    let sent := [⟨method, c.metadata, request⟩]
    match readReply decode? reply with
    | .ok answer => ⟨.ok answer, sent, [], [⟨method, .success⟩]⟩
    | .error (.inl fault) =>
      let failure := RemoteFailure.ofFault method.name fault
      ⟨.error (.remote failure), sent, [failedEntry failure], [⟨method, .error⟩]⟩
    | .error (.inr what) => ⟨.error (.raised what), sent, [], [⟨method, statusOf (.raised what)⟩]⟩
  else ⟨.error .closedChannel, [], [], [⟨method, .error⟩]⟩

/-- Asks what the server is. -/
def info (c : Client) (reply : Reply) : CallRun InfoResponse :=
  c.call .info (Message.encode (⟨[]⟩ : InfoRequest)) Message.decode? reply

/-- The entity of a row, which is all of the row but its statuses. -/
def entityRow (r : Row) : EntityRow := ⟨some r.timestamp, .ofList r.fields.entries, []⟩

/-- The request for features of rows. -/
def request (c : Client) (refs : List FeatureReference) (rows : List Row)
    (project : Option String) :
    FeaturesRequest :=
  ⟨rows.map entityRow, refs.map (·.message), project.getD c.project, []⟩

/-- The names of all fields of rows, each once, in order. -/
def entityNames (rows : List Row) : List String :=
  (FieldMap.ofList (rows.flatMap fun r => r.fields.keys.map (·, ()))).keys

/-- The entry that tells of a request. -/
def requestedEntry (request : FeaturesRequest) (rows : List Row) : LogEntry :=
  ⟨.debug, .client, "Requesting " ++ toString request.features.length ++ " features for " ++
    toString request.entityRows.length ++ " rows (entities=" ++
    bracketed "[" "]" ((entityNames rows).map quoted) ++ ", project='" ++ request.project ++ "')"⟩

/-- The row of one record of an answer, at a point in time. Values without a status are present. -/
def answeredRow (start : Row) (v : FieldValues) : Row :=
  v.fields.entries.foldl (fun r (name, value) =>
    let status := match v.statuses.find? name with
      | some n => FieldStatus.ofNumber n.toInt
      | none => .present
    r.store name value (some status)) start

/-- The rows of an answer, made at a time of the clock. -/
def answeredRows (now : Double) (answer : FeaturesResponse) : Except Failure (List Row) :=
  answer.fieldValues.mapM fun v => ((Row.create now).mapError .moment).map (answeredRow · v)

/-- The entry that tells of an answer with another number of rows. -/
def countEntries (answered asked : Nat) : List LogEntry :=
  if answered = asked then []
  else
    [⟨.warning, .client, "Feast serving returned " ++ toString answered ++ " rows for " ++
      toString asked ++ " entity rows"⟩]

/-- Asks for features of rows whose references are read already. -/
def featuresOf (c : Client) (now : Double) (refs : List FeatureReference) (rows : List Row)
    (project : Option String) (reply : Reply) : CallRun (List Row) :=
  let request := c.request refs rows project
  let run := (c.call .features (Message.encode request) Message.decode? reply).andThen
    (answeredRows now)
  let counted := match run.result with
    | .ok answered => countEntries answered.length rows.length
    | .error _ => []
  { run with logs := requestedEntry request rows :: run.logs ++ counted }

/-- Asks for features of rows. References are read first, and nothing is sent when one is
refused. -/
def features (c : Client) (now : Double) (refs : Native) (rows : List Row)
    (project : Option String) (reply : Reply) : CallRun (List Row) :=
  match FeatureReference.ofNatives refs with
  | .ok refs => c.featuresOf now refs rows project reply
  | .error why => .failed (.references why)

end Client

/-! ## Recording -/

/-- Records what is counted of a call during which the clock stood still. -/
def RpcMetrics.recordAll (m : RpcMetrics) (enabled : Bool) (now : Double) (os : List Observation) :
    RpcMetrics :=
  os.foldl (fun m o =>
    (m.track enabled ⟨false, false⟩ ⟨o.method.name, now, now, o.status⟩).1) m

end OnlineFeatures
