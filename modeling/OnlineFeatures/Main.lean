import OnlineFeatures.Cli.Run
import Std.Time.DateTime.Timestamp

/-!
# The program

The part that touches the outside. The environment, the files and the clock are read once, before
anything is decided; the server's answer, which the transport hands over as the bytes of one
message, comes on standard input. All else is `Program.run`, and what it says is written out here.
-/

namespace OnlineFeatures

namespace Console

/-! ## Reading -/

/-- The bindings in a list of `NAME=VALUE` texts that end in zero bytes. -/
def bindings (content : String) : List (String × String) :=
  (content.splitOn "\x00").filterMap fun entry =>
    let cs := entry.toList
    match cs.dropWhile (· ≠ '=') with
    | _ :: value => some (String.ofList (cs.takeWhile (· ≠ '=')), String.ofList value)
    | [] => none

/-- The content of a file, if there is one that can be read. -/
def readFile? (path : String) : IO (Option Bytes) := do
  try
    return some (← IO.FS.readBinFile path).toList
  catch _ =>
    return none

/-- The content of a file under its name, if there is one. -/
def namedFile (path : String) : IO (List (String × Bytes)) := do
  return ((← readFile? path).map fun content => (path, content)).toList

/-- Where the system tells the variables of this run. -/
def variablesFile : String := "/proc/self/environ"

/-- The time of the clock in seconds. -/
def now : IO Double := do
  let seconds := (← Std.Time.Timestamp.now).toSecondsSinceUnixEpoch.val
  return (Double.ofInt? seconds).getD .zero

/-- What surrounds this run. The certificate file is read where settings name one. -/
def environment : IO Environment := do
  let found := bindings (((← readFile? variablesFile).bind Utf8.decode?).getD "")
  let surroundings : Environment :=
    ⟨.ofList found, ← namedFile Environment.settingsFile, ← now⟩
  let certificate := match Settings.load [] surroundings with
    | .ok s => s.certificatePath
    | .error _ => none
  let certificates ← (certificate.map namedFile).getD (pure [])
  return { surroundings with files := surroundings.files ++ certificates }

/-- The server's answer. -/
def answer : IO Reply := do
  return .response (← (← IO.getStdin).readBinToEnd).toList

/-! ## Writing -/

/-- A log entry with the time in front. -/
def timedLine (time : Double) (entry : LogEntry) : String :=
  let second := ((time.exactInt?.getD 0) + epochSecond).toNat
  (DateTime.ofSecond second 0).isoText ++ " " ++ entry.line

/-- What is said of a failure that ends the run. -/
def failureText (why : Failure) : String :=
  match why with
  | .settings (.refused errors) =>
    String.intercalate "\n" (errors.map fun e => e.name.text ++ ": " ++ e.fault.message)
  | _ => why.message?.getD "the run failed"

/-- Writes what a run says and gives its exit code. -/
def finish (e : Environment) (run : ProgramRun) : IO UInt32 := do
  for entry in run.logs do
    IO.eprintln (timedLine e.now entry)
  IO.print run.output
  match run.ending with
  | .exit code => return .ofNat code
  | .failed why =>
    IO.eprintln (failureText why)
    return 1

end Console

end OnlineFeatures

open OnlineFeatures in
/-- Runs the program on its command line. -/
def main (words : List String) : IO UInt32 := do
  let e ← Console.environment
  match Arguments.read words with
  | .error stop =>
    unless stop.text.isEmpty do IO.eprintln stop.text
    return .ofNat stop.code
  | .ok a => Console.finish e (Program.runWith a e (← Console.answer))
