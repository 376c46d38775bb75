import OnlineFeatures.Settings.Field
import OnlineFeatures.Settings.EnvFile
import OnlineFeatures.Text.Utf8

/-!
# Settings in force

Each setting is taken from the first place that has it: the caller's arguments, the environment, a
file of variables, the default. Variables are found in any case of their letters; of two that differ
only in case the later one counts. All settings are read before any refusal is reported, but none if
the file is no text.
-/

namespace OnlineFeatures

/-- What surrounds a run: the variables in the order they were set, the files of the working
directory, and the clock, in seconds since 1970. -/
structure Environment where
  bindings : OrderedMap String
  files : List (String × Bytes)
  now : Double
  deriving Repr

namespace Environment

/-- The file of variables that settings are read from. -/
def settingsFile : String := ".env"

/-- The content of a file. -/
def file? (e : Environment) (path : String) : Option Bytes := e.files.lookup path

/-- Whether the settings file is a text, if there is one. -/
def settingsReadable (e : Environment) : Bool :=
  (e.file? settingsFile).all fun content => (Utf8.decode? content).isSome

/-- The bindings of the settings file. -/
def fileVariables (e : Environment) : List (String × Option String) :=
  (((e.file? settingsFile).bind Utf8.decode?).map fun text =>
    (EnvFile.read e.bindings.entries text).entries).getD []

end Environment

/-- A letter in lower case; of the letters beyond ASCII, the Kelvin sign is the one that falls among
the plain letters. -/
def lowerLetter (c : Char) : Char := if c = '\u212a' then 'k' else c.toLower

/-- A name in lower case. -/
def lowerName (s : String) : String := String.ofList (s.toList.map lowerLetter)

/-- The last entry whose name is the given one in lower case. -/
def lastNamed {α : Type} (name : String) (entries : List (String × α)) : Option α :=
  (entries.reverse.find? fun (k, _) => lowerName k = name).map (·.2)

namespace SettingName

/-- The value given for a setting, from the first place that has one. -/
def given? (n : SettingName) (arguments : List (String × Native)) (e : Environment) :
    Option Native :=
  (arguments.lookup n.text).or <|
    ((lastNamed n.variableName e.bindings.entries).map .text).or <|
      ((lastNamed n.variableName e.fileVariables).bind id).map .text

/-- Reads a setting where it is given. -/
def readGiven {α : Type} (n : SettingName) (arguments : List (String × Native)) (e : Environment)
    (read : Native → Except SettingFault α) (default : α) : Except SettingError α :=
  match n.given? arguments e with
  | none => .ok default
  | some v => (read v).mapError fun fault => ⟨n, fault⟩

end SettingName

namespace Settings

/-- The error of a result, if it is one. -/
def errorOf {ε α : Type} : Except ε α → List ε
  | .ok _ => []
  | .error e => [e]

/-- The settings that are read, or every refused setting in order. -/
def read (arguments : List (String × Native)) (e : Environment) :
    Except (List SettingError) Settings :=
  let host := SettingName.host.readGiven arguments e Setting.readText default.host
  let port := SettingName.port.readGiven arguments e Setting.readPort default.port
  let project := SettingName.project.readGiven arguments e Setting.readText default.project
  let tls := SettingName.tlsEnabled.readGiven arguments e Setting.readBool default.tlsEnabled
  let certificate := SettingName.certificatePath.readGiven arguments e Setting.readOptionalText
    default.certificatePath
  let token :=
    SettingName.authToken.readGiven arguments e Setting.readOptionalText default.authToken
  match host, port, project, tls, certificate, token with
  | .ok host, .ok port, .ok project, .ok tlsEnabled, .ok certificatePath, .ok authToken =>
    .ok { host, port, project, tlsEnabled, certificatePath, authToken }
  | _, _, _, _, _, _ =>
    .error (errorOf host ++ errorOf port ++ errorOf project ++ errorOf tls ++ errorOf certificate ++
      errorOf token)

/-- The settings in force, or why there are none. -/
def load (arguments : List (String × Native)) (e : Environment) : Except SettingsFault Settings :=
  if e.settingsReadable then (read arguments e).mapError .refused else .error .undecodableFile

end Settings

/-! ## The shared settings

Settings are read from the environment once and then shared, until they are forgotten. A failed
reading leaves nothing behind. -/

/-- The settings read so far: those shared now, with the number of their reading, and how many
readings succeeded. -/
structure SettingsCache where
  shared : Option (Nat × Settings)
  count : Nat
  deriving DecidableEq, Repr

namespace SettingsCache

/-- Nothing read yet. -/
def empty : SettingsCache := ⟨none, 0⟩

def clear (c : SettingsCache) : SettingsCache := { c with shared := none }

/-- The shared settings, read now if there are none. -/
def get (c : SettingsCache) (e : Environment) :
    SettingsCache × Except SettingsFault (Nat × Settings) :=
  match c.shared with
  | some held => (c, .ok held)
  | none =>
    match Settings.load [] e with
    | .ok s => (⟨some (c.count, s), c.count + 1⟩, .ok (c.count, s))
    | .error why => (c, .error why)

end SettingsCache

end OnlineFeatures
