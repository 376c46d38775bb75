/-!
# Settings

Where a client connects to, how, and as whom.
-/

namespace OnlineFeatures

/-- The settings of a client. -/
structure Settings where
  host : String
  port : Int
  /-- The project named in every request; the empty one leaves the choice to the server. -/
  project : String
  tlsEnabled : Bool
  /-- The file of the root certificate to trust, in place of the system's. -/
  certificatePath : Option String
  /-- The token sent with every call. -/
  authToken : Option String
  deriving DecidableEq, Repr

namespace Settings

/-- The settings where nothing is given. -/
def default : Settings := ⟨"localhost", 6566, "", false, none, none⟩

/-- The host and the port as one text. -/
def target (s : Settings) : String := s.host ++ ":" ++ toString s.port

end Settings

/-- The names of the settings. -/
inductive SettingName where
  | host
  | port
  | project
  | tlsEnabled
  | certificatePath
  | authToken
  deriving DecidableEq, Repr

namespace SettingName

/-- All names in their order. -/
def all : List SettingName := [host, port, project, tlsEnabled, certificatePath, authToken]

/-- The name by which a setting is given. -/
def text : SettingName → String
  | host => "host"
  | port => "port"
  | project => "project"
  | tlsEnabled => "tls_enabled"
  | certificatePath => "certificate_path"
  | authToken => "auth_token"

/-- The environment variable of a setting, in lower case. -/
def variableName (n : SettingName) : String := "feast_serving_" ++ n.text

end SettingName

/-- Why a given setting is refused. -/
inductive SettingFault where
  | notText
  | undecodableText
  | unparsableInteger
  | longInteger
  | fractional
  | notFinite
  | notInteger
  | tooSmall
  | tooLarge
  | unparsableBool
  | notBool
  deriving DecidableEq, Repr

namespace SettingFault

/-- The short name of a refusal. -/
def code : SettingFault → String
  | notText => "string_type"
  | undecodableText => "string_unicode"
  | unparsableInteger => "int_parsing"
  | longInteger => "int_parsing_size"
  | fractional => "int_from_float"
  | notFinite => "finite_number"
  | notInteger => "int_type"
  | tooSmall => "greater_than_equal"
  | tooLarge => "less_than_equal"
  | unparsableBool => "bool_parsing"
  | notBool => "bool_type"

def message : SettingFault → String
  | notText => "Input should be a valid string"
  | undecodableText =>
    "Input should be a valid string, unable to parse raw data as a unicode string"
  | unparsableInteger => "Input should be a valid integer, unable to parse string as an integer"
  | longInteger => "Unable to parse input string as an integer, exceeded maximum size"
  | fractional => "Input should be a valid integer, got a number with a fractional part"
  | notFinite => "Input should be a finite number"
  | notInteger => "Input should be a valid integer"
  | tooSmall => "Input should be greater than or equal to 1"
  | tooLarge => "Input should be less than or equal to 65535"
  | unparsableBool => "Input should be a valid boolean, unable to interpret input"
  | notBool => "Input should be a valid boolean"

end SettingFault

/-- A refused setting. -/
structure SettingError where
  name : SettingName
  fault : SettingFault
  deriving DecidableEq, Repr

/-- Why there are no settings. -/
inductive SettingsFault where
  /-- A settings file that is no text. -/
  | undecodableFile
  | refused (errors : List SettingError)
  deriving DecidableEq, Repr

end OnlineFeatures
