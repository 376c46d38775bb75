import OnlineFeatures.Failure

/-!
# Credentials

A token is sent with every call, as one more entry behind whatever metadata the call has already.
-/

namespace OnlineFeatures

/-- Named texts that travel with a call. -/
abbrev Metadata := List (String × String)

/-- A token that is sent with every call. -/
structure Credentials where
  token : String
  deriving DecidableEq, Repr

namespace Native

/-- Whether a value counts as true where a truth value is wanted. -/
def isTruthy : Native → Bool
  | none => false
  | bool b => b
  | int i => i ≠ 0
  | status s => s.number ≠ 0
  | float x => x.exactInt? ≠ some 0
  | fraction num _ => num ≠ 0
  | decimal (.finite _ m) => m.digits ≠ 0
  | complex re im => re.exactInt? ≠ some 0 || im.exactInt? ≠ some 0
  | text s => s ≠ ""
  | octets _ content => !content.isEmpty
  | collection .generator _ => true
  | collection _ items => !items.isEmpty
  | dict entries => !entries.isEmpty
  | range stop => 0 < stop
  | _ => true

end Native

namespace Credentials

/-- The credentials of a token; an empty one is refused. -/
def ofToken (token : String) : Except Failure Credentials :=
  if token = "" then .error .emptyToken else .ok ⟨token⟩

/-- The credentials of a token of any type, which is sent as its text. -/
def ofNative (v : Native) : Except Failure Credentials :=
  if v.isTruthy then
    match v.plain with
    | .ok token => .ok ⟨token⟩
    | .error why => .error (.references (.unshowable why))
  else .error .emptyToken

/-- The entry of a token. -/
def metadata (c : Credentials) : Metadata := [("authorization", "Bearer " ++ c.token)]

/-- The text that credentials are shown with, which is the same for all. -/
def shown (_ : Credentials) : String := "JwtCallCredentials(token=***)"

end Credentials

/-- What is known of a call besides its request. -/
structure CallDetails (τ : Type) where
  method : String
  timeout : Option τ
  metadata : Option Metadata
  waitForReady : Option Bool
  compression : Option Nat
  deriving Repr

namespace CallDetails

variable {τ ρ α : Type}

/-- The details with the entry of credentials added behind the others. -/
def authorized (c : Credentials) (d : CallDetails τ) : CallDetails τ :=
  { d with metadata := some (d.metadata.getD [] ++ c.metadata) }

/-- Passes a call on with its details authorized. -/
def intercept (c : Credentials) (proceed : CallDetails τ → ρ → α) (d : CallDetails τ)
    (request : ρ) :
    α :=
  proceed (d.authorized c) request

end CallDetails

end OnlineFeatures
