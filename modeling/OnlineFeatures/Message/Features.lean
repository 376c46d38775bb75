import OnlineFeatures.Message.Reference
import OnlineFeatures.Message.Value

/-!
# The feature call on the wire

A request names features and, for each entity, a point in time and the entity's key fields. A
response has a record of field values for each entity, with a status for each field.
-/

namespace OnlineFeatures

/-! ## Requests -/

/-- One entity of a request. -/
structure EntityRow where
  timestamp : Option Timestamp
  fields : FieldMap Value
  unknown : List Record
  deriving DecidableEq, Repr

instance : Message EntityRow where
  empty := ⟨none, .empty, []⟩
  absorb m r :=
    match r.field with
    | .bytes 1 c =>
      (Message.mergeFrom (m.timestamp.getD Message.empty) c).map fun t =>
        { m with timestamp := some t }
    | .bytes 2 c =>
      (FieldMap.readEntry? 2 c).map fun
        | .inl (key, v) => { m with fields := m.fields.insert key v }
        | .inr kept => { m with unknown := m.unknown ++ [kept] }
    | _ => some { m with unknown := m.unknown ++ [r] }
  records m :=
    m.timestamp.toList.map (Message.nested 1) ++ m.fields.records 2 ++ m.unknown

/-- A request for the values of features. -/
structure FeaturesRequest where
  entityRows : List EntityRow
  features : List ReferenceMessage
  project : String
  unknown : List Record
  deriving DecidableEq, Repr

instance : Message FeaturesRequest where
  empty := ⟨[], [], "", []⟩
  absorb m r :=
    match r.field with
    | .bytes 2 c => (Message.decode? c).map fun e => { m with entityRows := m.entityRows ++ [e] }
    | .bytes 4 c => (Message.decode? c).map fun f => { m with features := m.features ++ [f] }
    | .bytes 5 c => (Utf8.decode? c).map fun project => { m with project }
    | _ => some { m with unknown := m.unknown ++ [r] }
  records m :=
    m.entityRows.map (Message.nested 2) ++ m.features.map (Message.nested 4) ++
      Record.unlessBlank 5 m.project ++ m.unknown

/-! ## Responses -/

/-- The field values of one entity. -/
structure FieldValues where
  fields : FieldMap Value
  /-- Status numbers, an open enumeration. -/
  statuses : FieldMap Int32
  unknown : List Record
  deriving DecidableEq, Repr

instance : Message FieldValues where
  empty := ⟨.empty, .empty, []⟩
  absorb m r :=
    match r.field with
    | .bytes 1 c =>
      (FieldMap.readEntry? 1 c).map fun
        | .inl (key, v) => { m with fields := m.fields.insert key v }
        | .inr kept => { m with unknown := m.unknown ++ [kept] }
    | .bytes 2 c =>
      (FieldMap.readEntry? 2 c).map fun
        | .inl (key, n) => { m with statuses := m.statuses.insert key n }
        | .inr kept => { m with unknown := m.unknown ++ [kept] }
    | _ => some { m with unknown := m.unknown ++ [r] }
  records m := m.fields.records 1 ++ m.statuses.records 2 ++ m.unknown

/-- The answer to a request for feature values. -/
structure FeaturesResponse where
  fieldValues : List FieldValues
  unknown : List Record
  deriving DecidableEq, Repr

instance : Message FeaturesResponse where
  empty := ⟨[], []⟩
  absorb m r :=
    match r.field with
    | .bytes 1 c => (Message.decode? c).map fun f => { m with fieldValues := m.fieldValues ++ [f] }
    | _ => some { m with unknown := m.unknown ++ [r] }
  records m := m.fieldValues.map (Message.nested 1) ++ m.unknown

end OnlineFeatures
