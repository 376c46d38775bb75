import OnlineFeatures.Message.Timestamp

/-!
# The serving information call on the wire
-/

namespace OnlineFeatures

/-- The request for information, which says nothing. -/
structure InfoRequest where
  unknown : List Record
  deriving DecidableEq, Repr

instance : Message InfoRequest where
  empty := ⟨[]⟩
  absorb m r := some ⟨m.unknown ++ [r]⟩
  records m := m.unknown

/-- What a server says of itself. -/
structure InfoResponse where
  version : String
  /-- The kind of serving, an open enumeration. -/
  kind : Int32
  jobStagingLocation : String
  unknown : List Record
  deriving DecidableEq, Repr

instance : Message InfoResponse where
  empty := ⟨"", 0, "", []⟩
  absorb m r :=
    match r.field with
    | .bytes 1 c => (Utf8.decode? c).map fun version => { m with version }
    | .varint 2 v => some { m with kind := VarintCoded.ofVarint v }
    | .bytes 10 c => (Utf8.decode? c).map fun jobStagingLocation => { m with jobStagingLocation }
    | _ => some { m with unknown := m.unknown ++ [r] }
  records m :=
    Record.unlessBlank 1 m.version ++ Record.unlessZero 2 m.kind ++
      Record.unlessBlank 10 m.jobStagingLocation ++ m.unknown

end OnlineFeatures
