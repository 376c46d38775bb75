import OnlineFeatures.Rpc.Credentials
import OnlineFeatures.Settings.Load
import OnlineFeatures.Log

/-!
# Channels

A channel leads to one target, in plain text or over TLS, and is open until it is first closed.
-/

namespace OnlineFeatures

/-- How a channel is secured. Over TLS either the given root certificates are trusted or the
system's. -/
inductive Security where
  | plaintext
  | tls (roots : Option Bytes)
  deriving DecidableEq, Repr

structure Channel where
  target : String
  security : Security
  /-- How often it has been closed. -/
  closed : Nat
  deriving DecidableEq, Repr

/-- What is wanted of a channel's security, and the credentials for the calls on it. -/
structure SecurityOptions where
  tlsEnabled : Bool
  certificatePath : Option String
  credentials : Option Credentials
  deriving DecidableEq, Repr

namespace SecurityOptions

/-- Plain text without credentials. -/
def none : SecurityOptions := ⟨false, .none, .none⟩

/-- The certificates that are read: those of the named file when TLS is on, if a file is named. -/
def readRoots (o : SecurityOptions) (e : Environment) : Except Failure Security :=
  if !o.tlsEnabled then .ok .plaintext
  else
    match o.certificatePath.filter (· ≠ "") with
    | .none => .ok (.tls .none)
    | some path =>
      match e.file? path with
      | some content => .ok (.tls (some content))
      | .none => .error (.missingFile path)

end SecurityOptions

namespace Channel

/-- The text of a target. -/
def targetText (host : String) (port : Int) : String := host ++ ":" ++ toString port

/-- The entry that tells of an opened channel. -/
def openedEntry (c : Channel) : LogEntry :=
  let kind := match c.security with
    | .plaintext => "plaintext"
    | .tls _ => "TLS"
  ⟨.info, .channel, "Opening " ++ kind ++ " channel to " ++ c.target⟩

/-- Opens a channel. -/
def build (e : Environment) (host : String) (port : Int) (o : SecurityOptions) :
    Except Failure Channel :=
  (o.readRoots e).map fun security => ⟨targetText host port, security, 0⟩

/-- Closes a channel once more. -/
def close (c : Channel) : Channel := { c with closed := c.closed + 1 }

/-- Whether a channel can still be used. -/
def isOpen (c : Channel) : Bool := c.closed = 0

end Channel

end OnlineFeatures
