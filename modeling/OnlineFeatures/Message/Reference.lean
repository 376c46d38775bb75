import OnlineFeatures.Message.Timestamp

/-!
# Feature references on the wire
-/

namespace OnlineFeatures

/-- A feature name and the name of its table, empty for none. -/
structure ReferenceMessage where
  table : String
  name : String
  unknown : List Record
  deriving DecidableEq, Repr

instance : Message ReferenceMessage where
  empty := ⟨"", "", []⟩
  absorb m r :=
    match r.field with
    | .bytes 1 c => (Utf8.decode? c).map fun table => { m with table }
    | .bytes 2 c => (Utf8.decode? c).map fun name => { m with name }
    | _ => some { m with unknown := m.unknown ++ [r] }
  records m := Record.unlessBlank 1 m.table ++ Record.unlessBlank 2 m.name ++ m.unknown

end OnlineFeatures
