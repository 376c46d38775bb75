import OnlineFeatures.Message.Listing
import OnlineFeatures.Failure

/-!
# The server's side

A server finds a call by its path, reads the request and answers with what its methods return. A
method that is not provided answers nothing and leaves a status on the call.
-/

namespace OnlineFeatures

/-- What a call is handled with: methods that are not provided, or ones that return a message, given
by its bytes. -/
inductive Servicer where
  | unprovided
  | returning (answer : Bytes)
  deriving DecidableEq, Repr

/-- What comes of a call at the server. -/
structure Served where
  /-- The request and the bytes of the answer. -/
  result : Except Failure (Listing × Bytes)
  /-- The status and details left on the call. -/
  context : Option (StatusCode × String)

namespace Servicer

/-- Handles a request of known types. -/
def handle (s : Servicer) (request answer : Type) [Message request] [Listable request]
    [Message answer] (content : Bytes) : Served :=
  match (Message.decode? content : Option request) with
  | none => ⟨.error .malformedMessage, none⟩
  | some m =>
    match s with
    | unprovided => ⟨.error .unimplemented, some (.unimplemented, "Method not implemented!")⟩
    | returning bs =>
      match (Message.decode? bs : Option answer) with
      | some a => ⟨.ok (Listable.list m, Message.encode a), none⟩
      | none => ⟨.error .malformedMessage, none⟩

/-- Handles the call of a path, if there is one. -/
def dispatch (s : Servicer) (path : String) (content : Bytes) : Option Served :=
  (RpcMethod.ofPath? path).map fun
    | .info => s.handle InfoRequest InfoResponse content
    | .features => s.handle FeaturesRequest FeaturesResponse content

end Servicer

end OnlineFeatures
