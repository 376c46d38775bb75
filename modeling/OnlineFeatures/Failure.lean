import OnlineFeatures.Row.Set
import OnlineFeatures.Reference
import OnlineFeatures.Rpc.Basic
import OnlineFeatures.Settings.Basic

/-!
# Failures

Everything that can go wrong, by its cause. A failure is of one kind, and four kinds are the
client's own: these have a text, a code and named details.
-/

namespace OnlineFeatures

/-- Why an operation fails. -/
inductive Failure where
  | conversion (why : ConversionFault)
  | inference (why : InferenceFault)
  | status (why : StatusFault)
  | moment (why : MomentFault)
  | references (why : ReferencesFault)
  /-- Bytes that are no message. -/
  | malformedMessage
  | remote (why : RemoteFailure)
  /-- A call on a channel that has been closed. -/
  | closedChannel
  /-- A call that the server does not provide. -/
  | unimplemented
  /-- Credentials without a token. -/
  | emptyToken
  /-- A certificate file that is not there. -/
  | missingFile (path : String)
  | settings (why : SettingsFault)
  /-- A piece of an entity argument that is not `key=value`. -/
  | entity (piece : String)
  /-- Whatever the surroundings raise. -/
  | raised (what : Raised)
  deriving DecidableEq, Repr

inductive FailureKind where
  | client
  | invalidArgument
  | unsupportedType
  | remoteCall
  | wrongType
  | badValue
  | tooLarge
  | outOfMemory
  | undecodableText
  | malformedMessage
  | badArgument
  | missingFile
  | invalidSettings
  | unimplemented
  | incomparable
  | raised (name : String)
  deriving DecidableEq, Repr

/-- What callers can catch an error as, besides its own kind. -/
inductive ErrorFamily where
  | client
  | transport
  | badValue
  | wrongType
  deriving DecidableEq, Repr

/-- The families of a client error. -/
def FailureKind.families : FailureKind → List ErrorFamily
  | client => [.client]
  | invalidArgument => [.client, .badValue]
  | unsupportedType => [.client, .wrongType]
  | remoteCall => [.client, .transport]
  | _ => []

/-- A client error in full. -/
structure ErrorReport where
  kind : FailureKind
  message : String
  code : String
  context : List (String × String)
  deriving DecidableEq, Repr

namespace ErrorReport

/-- A malformed input, with named details. -/
def invalidArgument (message : String) (context : List (String × String)) : ErrorReport :=
  ⟨.invalidArgument, message, "INVALID_ARGUMENT", context⟩

/-- A value that cannot be sent. -/
def unsupportedType (message : String) (context : List (String × String)) : ErrorReport :=
  ⟨.unsupportedType, message, "UNSUPPORTED_TYPE", context⟩

/-- A failed call. -/
def remoteCall (f : RemoteFailure) : ErrorReport :=
  ⟨.remoteCall, f.message, "REMOTE_CALL_FAILED",
    [("method", f.method), ("status_code", f.code.name)]⟩

/-- The details that arguments give, as texts. -/
def details (arguments : List (String × Native)) : List (String × String) :=
  arguments.filterMap fun (k, v) => v.plain.toOption.map (k, ·)

/-- The arguments without some of them. -/
def without (names : List String) (arguments : List (String × Native)) : List (String × Native) :=
  arguments.filter fun (k, _) => k ∉ names

/-- The text of an argument, or a default where it is not given. -/
def textOr (default : String) (name : String) (arguments : List (String × Native)) : String :=
  ((arguments.lookup name).bind fun v => v.plain.toOption).getD default

/-- The details in a dictionary of texts. -/
def dictDetails : Native → List (String × String)
  | .dict entries => details (entries.filterMap fun (k, v) => k.plain.toOption.map (·, v))
  | _ => []

/-- The report of a kind that is made from named arguments; none when they do not fit the kind. -/
def ofArguments? (kind : FailureKind) (arguments : List (String × Native)) : Option ErrorReport :=
  match kind with
  | .invalidArgument =>
    some (.invalidArgument (textOr "Invalid argument" "message" arguments)
      (details (without ["message"] arguments)))
  | .unsupportedType =>
    let type := textOr "" "value_type" arguments
    some (.unsupportedType (textOr "Unsupported value type" "message" arguments)
      (details (without ["message", "value_type"] arguments) ++
        (if type = "" then [] else [("value_type", type)])))
  | .client =>
    if (arguments.lookup "message").isSome ∧
        without ["message", "error_code", "context"] arguments matches [] then
      some ⟨.client, textOr "" "message" arguments, textOr "INTERNAL_ERROR" "error_code" arguments,
        ((arguments.lookup "context").map dictDetails).getD []⟩
    else none
  | _ => none

end ErrorReport

namespace Failure

/-- The report of a failure that is one of the client's own. -/
def report? : Failure → Option ErrorReport
  | inference (.unsupported why) =>
    some (.unsupportedType why.message
      (if why.valueType = "" then [] else [("value_type", why.valueType)]))
  | moment (.bool shown) =>
    some (.invalidArgument "Entity timestamp cannot be a bool" [("value", shown)])
  | moment (.unsupported typeName shown) =>
    some (.invalidArgument ("Unsupported entity timestamp type " ++ typeName) [("value", shown)])
  | references (.reference why) =>
    some (.invalidArgument why.message [("feature_ref", why.reference)])
  | remote why => some (.remoteCall why)
  | _ => none

/-- The kind of a conversion fault. -/
def conversionKind : ConversionFault → FailureKind
  | .wrongType => .wrongType
  | .outOfRange => .badValue
  | .tooLarge => .tooLarge
  | .notText => .undecodableText
  | .outOfMemory => .outOfMemory

/-- The kind of a fault of settings. -/
def settingsKind : SettingsFault → FailureKind
  | .undecodableFile => .undecodableText
  | .refused _ => .invalidSettings

def kind : Failure → FailureKind
  | conversion why => conversionKind why
  | inference (.unsupported _) => .unsupportedType
  | inference .longNumeral => .badValue
  | inference .tooLarge => .tooLarge
  | status .incomparable => .incomparable
  | status _ => .badValue
  | moment (.bool _) => .invalidArgument
  | moment (.unsupported ..) => .invalidArgument
  | moment .calendar => .tooLarge
  | moment (.notWhole .infinity) => .tooLarge
  | moment _ => .badValue
  | references (.reference _) => .invalidArgument
  | references (.unshowable _) => .badValue
  | references .notIterable => .wrongType
  | malformedMessage => .malformedMessage
  | remote _ => .remoteCall
  | closedChannel => .badValue
  | unimplemented => .unimplemented
  | emptyToken => .badValue
  | missingFile _ => .missingFile
  | settings why => settingsKind why
  | entity _ => .badArgument
  | raised what => .raised what.name

/-- The text about what has no text of its own. -/
def unshowableMessage? : Unshowable → Option String
  | .longNumeral => none
  | .timestamp why => some why.message

/-- The text of a failure, where it has one. -/
def message? : Failure → Option String
  | status (.unshowable why) => unshowableMessage? why
  | status why => why.message?
  | moment (.unshowable why) => unshowableMessage? why
  | moment (.notWhole why) => some why.message
  | moment (.invalid why) => some why.message
  | references (.unshowable why) => unshowableMessage? why
  | closedChannel => some "Cannot invoke RPC on closed channel!"
  | unimplemented => some "Method not implemented!"
  | emptyToken => some "JWT credentials require a non-empty token"
  | missingFile path => some ("[Errno 2] No such file or directory: " ++ quoted path)
  | entity piece => some ("Entity must be key=value, got '" ++ piece ++ "'")
  | raised what => some what.message
  | f => f.report?.map (·.message)

/-- Whether a failure is an error, not a signal that merely passes through. -/
def isOrdinary : Failure → Bool
  | raised what => what.ordinary
  | _ => true

end Failure

/-- A row fault as a failure. -/
def RowFault.failure : RowFault → Failure
  | value why => .inference why
  | status why => .status why

end OnlineFeatures
