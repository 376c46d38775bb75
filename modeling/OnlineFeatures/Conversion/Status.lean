import OnlineFeatures.Native.Print

/-!
# Statuses from native values

A status is given by anything that equals its number, whatever the type. Other integers count as
invalid, like status numbers that a newer server sends; what is no integer and equals none of the
numbers is refused.
-/

namespace OnlineFeatures

/-- Why a value gives no status. -/
inductive StatusFault where
  /-- It equals no status number; `shown` is its text. -/
  | unknown (shown : String)
  /-- It equals no status number and has no text. -/
  | unshowable (why : Unshowable)
  /-- It can be compared with no number at all. -/
  | incomparable
  deriving DecidableEq, Repr

/-- The text of the complaint, where there is one. -/
def StatusFault.message? : StatusFault → Option String
  | unknown shown => some (shown ++ " is not a valid FieldStatus")
  | _ => none

namespace Native

/-- The whole number that a value equals. A decimal is compared only with the numbers of one
digit. -/
def equalNumber? : Native → Option Int
  | float x => x.exactInt?
  | fraction num den => if den = 1 then some num else Option.none
  | decimal d => d.digit?
  | complex re im => if im.exactInt? = some 0 then re.exactInt? else Option.none
  | v => v.count?

/-- The complaint about a value that gives no status. -/
def statusFault (v : Native) : StatusFault :=
  match v.shown with
  | .ok shown => .unknown shown
  | .error why => .unshowable why

/-- The status that a value gives. -/
def toStatus (v : Native) : Except StatusFault FieldStatus :=
  match v with
  | decimal (.nan _ true _) => .error .incomparable
  | _ =>
    match v.equalNumber?.bind FieldStatus.ofNumber? with
    | some s => .ok s
    | Option.none => if v.integer?.isSome then .ok .invalid else .error v.statusFault

end Native

end OnlineFeatures
