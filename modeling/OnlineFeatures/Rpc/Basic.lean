/-!
# Remote calls

The two calls of the service, and the ways a call ends without an answer.
-/

namespace OnlineFeatures

/-! ## Methods -/

/-- The calls of the service. -/
inductive RpcMethod where
  | info
  | features
  deriving DecidableEq, Repr

namespace RpcMethod

def all : List RpcMethod := [info, features]

def name : RpcMethod → String
  | info => "GetFeastServingInfo"
  | features => "GetOnlineFeaturesV2"

/-- The name the service is found under. -/
def service : String := "feast.serving.ServingService"

/-- The path a call is sent to. -/
def path (m : RpcMethod) : String := "/" ++ service ++ "/" ++ m.name

/-- The call of a path. -/
def ofPath? (path : String) : Option RpcMethod := all.find? fun m => m.path = path

theorem ofPath?_path (m : RpcMethod) : ofPath? m.path = some m := by cases m <;> decide

end RpcMethod

/-! ## Status codes -/

/-- The status with which a call ends. -/
inductive StatusCode where
  | ok
  | cancelled
  | unknown
  | invalidArgument
  | deadlineExceeded
  | notFound
  | alreadyExists
  | permissionDenied
  | resourceExhausted
  | failedPrecondition
  | aborted
  | outOfRange
  | unimplemented
  | internal
  | unavailable
  | dataLoss
  | unauthenticated
  deriving DecidableEq, Repr

namespace StatusCode

def all : List StatusCode :=
  [ok, cancelled, unknown, invalidArgument, deadlineExceeded, notFound, alreadyExists,
    permissionDenied, resourceExhausted, failedPrecondition, aborted, outOfRange, unimplemented,
    internal, unavailable, dataLoss, unauthenticated]

def name : StatusCode → String
  | ok => "OK"
  | cancelled => "CANCELLED"
  | unknown => "UNKNOWN"
  | invalidArgument => "INVALID_ARGUMENT"
  | deadlineExceeded => "DEADLINE_EXCEEDED"
  | notFound => "NOT_FOUND"
  | alreadyExists => "ALREADY_EXISTS"
  | permissionDenied => "PERMISSION_DENIED"
  | resourceExhausted => "RESOURCE_EXHAUSTED"
  | failedPrecondition => "FAILED_PRECONDITION"
  | aborted => "ABORTED"
  | outOfRange => "OUT_OF_RANGE"
  | unimplemented => "UNIMPLEMENTED"
  | internal => "INTERNAL"
  | unavailable => "UNAVAILABLE"
  | dataLoss => "DATA_LOSS"
  | unauthenticated => "UNAUTHENTICATED"

/-- The code of a name. -/
def ofName? (name : String) : Option StatusCode := all.find? fun c => c.name = name

end StatusCode

/-! ## Failures -/

/-- How the transport reports a failed call: with a status, parts of which may be missing, or with a
text alone. -/
inductive RpcFault where
  | status (code : Option StatusCode) (details : Option String)
  | bare (text : String)
  deriving DecidableEq, Repr

/-- A failed call as the client reports it. -/
structure RemoteFailure where
  method : String
  code : StatusCode
  details : String
  deriving DecidableEq, Repr

namespace RemoteFailure

/-- The failure of a method, from the transport's report. What the report leaves out is an unknown
status or an empty text. -/
def ofFault (method : String) : RpcFault → RemoteFailure
  | .status code details => ⟨method, code.getD .unknown, details.getD ""⟩
  | .bare text => ⟨method, .unknown, text⟩

/-- The text of a failure. -/
def message (f : RemoteFailure) : String :=
  f.method ++ " failed with " ++ f.code.name ++ ": " ++ f.details

end RemoteFailure

/-- What the transport raises besides its own faults: anything but the client's own errors, be it an
ordinary error or a signal that is no error, such as the one that ends a program. -/
structure Raised where
  name : String
  message : String
  ordinary : Bool
  deriving DecidableEq, Repr

/-- What comes of sending a call. -/
inductive Reply where
  | response (content : List UInt8)
  | fault (why : RpcFault)
  | raised (what : Raised)
  deriving DecidableEq, Repr

end OnlineFeatures
