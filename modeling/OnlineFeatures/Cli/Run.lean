import OnlineFeatures.Cli.Arguments
import OnlineFeatures.Cli.Entities
import OnlineFeatures.Client.Basic
import OnlineFeatures.Row.Print
import OnlineFeatures.Schema

/-!
# A run of the program

The arguments and the settings make a client, which is asked one thing and then closed. What it
answers is printed as JSON; a failure that is the user's or the server's is logged, and any other
leaves the run.
-/

namespace OnlineFeatures

/-- How a run ends: with an exit code, or with a failure that nothing took care of. -/
inductive RunEnd where
  | exit (code : Nat)
  | failed (why : Failure)
  deriving DecidableEq, Repr

/-- All that a run does. -/
structure ProgramRun where
  ending : RunEnd
  output : String
  logs : List LogEntry
  channels : List Channel
  sent : List SentCall

namespace Program

/-- The name of a kind of serving, or its number where it has none. -/
def kindJson (n : Int) : Json :=
  match Schema.servingKinds.find? fun (_, k) => (k : Int) = n with
  | some (name, _) => .text name
  | none => .int n

/-- The JSON object of the serving information: the fields that are set. -/
def infoJson (m : InfoResponse) : Json :=
  .object <|
    (if m.version = "" then [] else [("version", .text m.version)]) ++
      (if m.kind = 0 then [] else [("type", kindJson m.kind.toInt)]) ++
      (if m.jobStagingLocation = "" then []
        else [("job_staging_location", .text m.jobStagingLocation)])

/-- A JSON value as it is printed. -/
def printed (j : Json) : String := j.render .lines ++ "\n"

/-- The settings in force: those of the environment, with what the arguments name put in their
place. -/
def settings (a : Arguments) (e : Environment) : Except Failure Settings :=
  match Settings.load [] e with
  | .error why => .error (.settings why)
  | .ok s => .ok { s with host := a.host.getD s.host, port := a.port.getD s.port }

/-- Asks what the command says; the answer is the text to print. -/
def ask (c : Client) (e : Environment) (reply : Reply) : Command → CallRun String
  | .info => (c.info reply).andThen fun m => .ok (printed (infoJson m))
  | .get features entities project =>
    match Entities.rows e.now entities with
    | .error why => .failed why
    | .ok rows =>
      (c.features e.now (.list (features.map .text)) rows project reply).andThen fun rows =>
        .ok (printed (.array (rows.map (·.json))))

/-- Whether a failure is reported to the user rather than passed on. -/
def isReported (why : Failure) : Bool :=
  match why.kind with
  | .client | .invalidArgument | .unsupportedType | .remoteCall | .badArgument => true
  | _ => false

/-- The log entry about a reported failure. -/
def reportEntry (why : Failure) : LogEntry := ⟨.error, .commandLine, why.message?.getD ""⟩

/-- A run that ends before a channel is open. -/
def endedEarly (why : Failure) : ProgramRun := ⟨.failed why, "", [], [], []⟩

/-- A run with a client: the call, the end it leads to, and the channel closed. -/
def runClient (c : Client) (opened : List LogEntry) (e : Environment) (reply : Reply)
    (command : Command) : ProgramRun :=
  let r := ask c e reply command
  let channels := [c.close.channel]
  match r.result with
  | .ok output => ⟨.exit 0, output, opened ++ r.logs, channels, r.sent⟩
  | .error why =>
    if isReported why then
      ⟨.exit 1, "", opened ++ r.logs ++ [reportEntry why], channels, r.sent⟩
    else ⟨.failed why, "", opened ++ r.logs, channels, r.sent⟩

/-- The entries that are written: debugging output only where it was asked for. -/
def written (verbose : Bool) (logs : List LogEntry) : List LogEntry :=
  if verbose then logs else logs.filter (·.isUsual)

def runWith (a : Arguments) (e : Environment) (reply : Reply) : ProgramRun :=
  match settings a e with
  | .error why => endedEarly why
  | .ok s =>
    match Client.ofSettings e s with
    | .error why => endedEarly why
    | .ok (c, opened) =>
      let r := runClient c opened e reply a.command
      { r with logs := written a.verbose r.logs }

/-- A run of the program on its command line. -/
def run (words : List String) (e : Environment) (reply : Reply) : Except UsageExit ProgramRun :=
  (Arguments.read words).map fun a => runWith a e reply

end Program

end OnlineFeatures
