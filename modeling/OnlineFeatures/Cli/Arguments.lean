import OnlineFeatures.Cli.Numerals
import OnlineFeatures.Cli.Options

/-!
# The program's arguments

Options for the connection stand before the command, options for what to ask behind it.
-/

namespace OnlineFeatures

/-- What is asked of the server. -/
inductive Command where
  | info
  | get (features entities : List String) (project : Option String)
  deriving DecidableEq, Repr

structure Arguments where
  host : Option String
  port : Option Int
  verbose : Bool
  command : Command
  deriving DecidableEq, Repr

/-- How reading the arguments ends without any. -/
inductive UsageExit where
  /-- Help was asked for. -/
  | help
  /-- The last line of the complaint. -/
  | error (line : String)
  deriving DecidableEq, Repr

namespace UsageExit

def code : UsageExit → Nat
  | help => 0
  | error _ => 2

/-- The text that is left for the user. -/
def text : UsageExit → String
  | help => ""
  | error line => line

end UsageExit

namespace Arguments

/-! ## The two grammars -/

/-- The options before the command. -/
inductive MainOption where
  | help
  | host
  | port
  | verbose
  deriving DecidableEq, Repr

/-- The options of the command that gets features. -/
inductive GetOption where
  | help
  | feature
  | entity
  | project
  deriving DecidableEq, Repr

/-- The grammar of the words before the command. -/
def mainGrammar : OptionGrammar MainOption where
  names := [("-h", .help), ("--help", .help), ("--host", .host), ("--port", .port),
    ("--verbose", .verbose), ("-v", .verbose)]
  takesValue
    | .host | .port => true
    | .help | .verbose => false
  display
    | .help => "-h/--help"
    | .host => "--host"
    | .port => "--port"
    | .verbose => "--verbose/-v"
  hasCommand := true

/-- The grammar of the words behind `get`. -/
def getGrammar : OptionGrammar GetOption where
  names := [("-h", .help), ("--help", .help), ("--feature", .feature), ("-f", .feature),
    ("--entity", .entity), ("-e", .entity), ("--project", .project), ("-p", .project)]
  takesValue
    | .help => false
    | .feature | .entity | .project => true
  display
    | .help => "-h/--help"
    | .feature => "--feature/-f"
    | .entity => "--entity/-e"
    | .project => "--project/-p"
  hasCommand := false

/-- The grammar of the words behind `info`. -/
def infoGrammar : OptionGrammar Unit where
  names := [("-h", ()), ("--help", ())]
  takesValue _ := false
  display _ := "-h/--help"
  hasCommand := false

/-- What the words before the command say. -/
structure MainState where
  host : Option String
  port : Option Int
  verbose : Bool

/-- Acts on an option before the command. -/
def applyMain (s : MainState) (o : MainOption) (value : Option String) :
    Except UsageStop MainState :=
  match o with
  | .help => .error .help
  | .verbose => .ok { s with verbose := true }
  | .host => .ok { s with host := value }
  | .port =>
    let text := value.getD ""
    match Lenient.integer? text with
    | some port => .ok { s with port }
    | none =>
      .error (.message (mainGrammar.optionMessage o ("invalid int value: " ++ quoted text)))

/-- What the words behind `get` say. -/
structure GetState where
  features : List String
  entities : List String
  project : Option String

/-- Acts on an option behind `get`. -/
def applyGet (s : GetState) (o : GetOption) (value : Option String) : Except UsageStop GetState :=
  match o with
  | .help => .error .help
  | .feature => .ok { s with features := s.features ++ [value.getD ""] }
  | .entity => .ok { s with entities := s.entities ++ [value.getD ""] }
  | .project => .ok { s with project := value }

/-- Acts on an option behind `info`. -/
def applyInfo (_ : Unit) (_ : Unit) (_ : Option String) : Except UsageStop Unit := .error .help

/-! ## Reading -/

/-- The name of the program in messages. -/
def programName : String := "feast-serving"

/-- The exit with a message; of a message with several lines only the last is kept. -/
def exitWith (program text : String) : UsageExit :=
  let line := program ++ ": error: " ++ text
  .error (String.ofList (line.toList.reverse.takeWhile (· ≠ '\n')).reverse)

/-- The exit of a reading that stopped. -/
def exitOf (program : String) : UsageStop → UsageExit
  | .help => .help
  | .message text => exitWith program text

/-- The message about options that have to be given. -/
def requiredMessage (names : List String) : String :=
  "the following arguments are required: " ++ String.intercalate ", " names

/-- Reads the words behind a command; the words that nothing was made of come with it. -/
def readCommand (name : String) (words : List String) : Except UsageExit (Command × List String) :=
  let program := programName ++ " " ++ name
  if name = "info" then
    match infoGrammar.read applyInfo () words with
    | .error why => .error (exitOf program why)
    | .ok p => .ok (.info, p.extras)
  else if name = "get" then
    match getGrammar.read applyGet ⟨[], [], none⟩ words with
    | .error why => .error (exitOf program why)
    | .ok p =>
      let missing :=
        (if p.state.features.isEmpty then [getGrammar.display .feature] else []) ++
          (if p.state.entities.isEmpty then [getGrammar.display .entity] else [])
      if missing.isEmpty then
        .ok (.get p.state.features p.state.entities p.state.project, p.extras)
      else .error (exitWith program (requiredMessage missing))
  else
    .error (exitWith programName ("argument command: invalid choice: " ++ quoted name ++
      " (choose from 'info', 'get')"))

/-- Reads the arguments of a run. -/
def read (words : List String) : Except UsageExit Arguments :=
  match mainGrammar.read applyMain ⟨none, none, false⟩ words with
  | .error why => .error (exitOf programName why)
  | .ok p =>
    match p.command with
    | none => .error (exitWith programName (requiredMessage ["command"]))
    | some (name, words) =>
      match readCommand name words with
      | .error e => .error e
      | .ok (command, extras) =>
        if p.extras.isEmpty && extras.isEmpty then
          .ok ⟨p.state.host, p.state.port, p.state.verbose, command⟩
        else
          .error (exitWith programName
            ("unrecognized arguments: " ++ String.intercalate " " (p.extras ++ extras)))

end Arguments

end OnlineFeatures
