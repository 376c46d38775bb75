import OnlineFeatures.Rpc.Basic
import OnlineFeatures.Rpc.Credentials

/-!
# Calls on their way

A call is handed on from one part of a channel to the next. The list of its metadata may be the
caller's own, who hands it over again with the next call; lists are objects here, each with an
identity, so as to say who changes which. Credentials are added in a list of their own, behind a
copy of the entries that came.
-/

namespace OnlineFeatures

/-- The metadata lists that there are. Identities are positions among them; there never become
fewer. -/
abbrev MetadataLists := List Metadata

/-- What is handed over with a request, the metadata by the identity of its list. -/
structure HeldDetails (τ κ : Type) where
  method : String
  timeout : Option τ
  metadata : Option Nat
  /-- What the transport authenticates this one call with. -/
  credentials : Option κ
  waitForReady : Option Bool
  compression : Option Nat
  deriving DecidableEq, Repr

namespace HeldDetails

variable {τ κ : Type}

/-- The entries that the metadata list has now. -/
def entries (d : HeldDetails τ κ) (lists : MetadataLists) : Metadata :=
  (d.metadata.bind fun id => lists[id]?).getD []

/-- The details as they read now. -/
def view (d : HeldDetails τ κ) (lists : MetadataLists) : CallDetails τ :=
  ⟨d.method, d.timeout, d.metadata.bind fun id => lists[id]?, d.waitForReady, d.compression⟩

end HeldDetails

/-- The details of a call that nothing is said of but its method. -/
def RpcMethod.details {τ κ : Type} (m : RpcMethod) : HeldDetails τ κ :=
  ⟨m.path, none, none, none, none, none⟩

/-- A part of a channel: it is handed calls, may change metadata lists, and answers. -/
abbrev Carrier (τ κ ρ α : Type) := MetadataLists → HeldDetails τ κ → ρ → MetadataLists × α

namespace Credentials

variable {τ κ ρ α : Type}

/-- Puts the entry of credentials behind the metadata, and hands the call on. -/
def intercept (c : Credentials) (proceed : Carrier τ κ ρ α) : Carrier τ κ ρ α :=
  fun lists d request =>
    let id := lists.length
    let copied := lists ++ [d.entries lists]
    proceed (copied.modify id (· ++ c.metadata)) { d with metadata := some id } request

end Credentials

namespace Carrier

variable {τ κ ρ α : Type}

/-- The way over a channel: past the credentials, where there are any. -/
def past (proceed : Carrier τ κ ρ α) (credentials : Option Credentials) : Carrier τ κ ρ α :=
  match credentials with
  | none => proceed
  | some c => c.intercept proceed

/-- Carries calls one after another. -/
def carryAll (carry : Carrier τ κ ρ α) (lists : MetadataLists) :
    List (HeldDetails τ κ × ρ) → MetadataLists × List α
  | [] => (lists, [])
  | (d, request) :: calls =>
    let (lists, a) := carry lists d request
    let (lists, as) := carry.carryAll lists calls
    (lists, a :: as)

end Carrier

end OnlineFeatures
